import FusionMultiNodes.Storage.KvStore
import Mathlib.Tactic.Linarith

/-! Stores that save to and load from files, with the history their laws are about: when each
value was put, and which versions have been returned. -/
namespace FusionMultiNodes

/-- A store, when the value under each key was put, and the greatest version returned for it. -/
structure KvHistory (V : Type) where
  kv : DistributedKVStore V
  birth : String → ℚ
  seen : String → ℤ

/-- An entry of a file, with the time its value was put. -/
abbrev SavedEntry (V : Type) := KVSnapEntry V × ℚ

/-- Any number of stores over the same files; a restarted store is one not used before. -/
structure KvWorld (V : Type) where
  clock : ℚ
  stores : ℕ → KvHistory V
  files : String → List (SavedEntry V)

inductive KvWorldEvent (V : Type)
  | put (i : ℕ) (key : String) (value : V) (partition : String) (ttlSeconds now : ℚ)
  | get (i : ℕ) (key : String) (now : ℚ)
  | getEntry (i : ℕ) (key : String) (partition : Option String) (now : ℚ)
  | delete (i : ℕ) (key : String) (now : ℚ)
  /-- `list_keys` and `list_partition`. -/
  | list (i : ℕ) (now : ℚ)
  | save (i : ℕ) (path : String) (now : ℚ)
  /-- `load`, or `restore` with the given `merge`. -/
  | restore (i : ℕ) (merge : Bool) (path : String) (now : ℚ)

namespace KvHistory

variable {V : Type} (h : KvHistory V)

def create (maxEntries : ℕ) : KvHistory V := ⟨.create maxEntries,fun _ => 0,fun _ => 0⟩

def returned (key : String) (version : ℤ) : KvHistory V :=
  { h with seen := Function.update h.seen key (max (h.seen key) version) }

def put (key : String) (value : V) (partition : String) (ttlSeconds now : ℚ) : KvHistory V :=
  let r := h.kv.put key value partition ttlSeconds now
  { h with kv := r.1, birth := Function.update h.birth key now }.returned key r.2.version

def getEntry (key : String) (partition : Option String) (now : ℚ) : KvHistory V :=
  let r := h.kv.getEntry key partition now
  match r.2 with
  | some e => { h with kv := r.1 }.returned key e.version
  | none => { h with kv := r.1 }

/-- The entries that are written, with the times their values were put. -/
def saved (now : ℚ) : List (SavedEntry V) :=
  (h.kv.snapshot now).2.map fun item => (item,h.birth item.key)

/-- One entry of a file; a restored value keeps the time it was put. -/
def restoreItem (merge : Bool) (now : ℚ) (p : SavedEntry V) : KvHistory V :=
  if merge = false ∧ h.kv.store.contains p.1.key = true then h
  else { h with
    kv := h.kv.restoreItem merge now p.1
    birth := Function.update h.birth p.1.key p.2 }

def restore (merge : Bool) (now : ℚ) (items : List (SavedEntry V)) : KvHistory V :=
  items.foldl (fun h p => h.restoreItem merge now p) h

end KvHistory

namespace KvWorld

variable {V : Type} (w : KvWorld V)

def create (maxEntries : ℕ) : KvWorld V := ⟨0,fun _ => .create maxEntries,fun _ => []⟩

def update (i : ℕ) (h : KvHistory V) (now : ℚ) : KvWorld V :=
  { w with clock := now, stores := Function.update w.stores i h }

def next : KvWorldEvent V → KvWorld V
  | .put i key value partition ttlSeconds now =>
    w.update i ((w.stores i).put key value partition ttlSeconds now) now
  | .get i key now => w.update i { w.stores i with kv := ((w.stores i).kv.get key now).1 } now
  | .getEntry i key partition now => w.update i ((w.stores i).getEntry key partition now) now
  | .delete i key now =>
    w.update i { w.stores i with kv := ((w.stores i).kv.delete key).1 } now
  | .list i now => w.update i { w.stores i with kv := ((w.stores i).kv.cleanupExpired now).1 } now
  | .save i path now =>
    { w.update i { w.stores i with kv := ((w.stores i).kv.save now).1 } now with
      files := Function.update w.files path ((w.stores i).saved now) }
  | .restore i merge path now => w.update i ((w.stores i).restore merge now (w.files path)) now

def eventTime : KvWorldEvent V → ℚ
  | .put _ _ _ _ _ now => now
  | .get _ _ now => now
  | .getEntry _ _ _ now => now
  | .delete _ _ now => now
  | .list _ now => now
  | .save _ _ now => now
  | .restore _ _ _ now => now

def machine : Machine (KvWorld V) (KvWorldEvent V) :=
  ⟨fun w ev => if w.clock ≤ eventTime ev then some (w.next ev) else none⟩

/-- From now on no value is returned later than its own put time and its time to live allow, and
no version below one that has been returned; and the step has replaced no value by one that was
put before it. -/
structure Lawful (w w' : KvWorld V) : Prop where
  timely : ∀ i k e t, w'.clock ≤ t → ((w'.stores i).kv.getEntry k none t).2 = some e →
    0 < e.ttlSeconds → t ≤ (w'.stores i).birth k + e.ttlSeconds
  versions : ∀ i k e t, w'.clock ≤ t → ((w'.stores i).kv.getEntry k none t).2 = some e →
    (w'.stores i).seen k ≤ e.version
  newer : ∀ i k e, (w.stores i).kv.store.get? k = some e →
    (w.stores i).birth k ≤ (w'.stores i).birth k

/-- The file's entry is not left out. -/
def Taken (h : KvHistory V) (merge : Bool) (p : SavedEntry V) : Prop :=
  ¬(merge = false ∧ h.kv.store.contains p.1.key = true)

/-- A key is put anew only if no version above 1 has been returned for it. A file's entry that is
taken has no time to live or is read at the moment its value was put, its version is not below
one that has been returned, and no value put later is stored under its key. -/
def Keeps : KvWorldEvent V → Prop
  | .put i key _ _ _ _ => (w.stores i).kv.store.get? key = none → (w.stores i).seen key ≤ 1
  | .restore i merge path now => ∀ p ∈ w.files path, Taken (w.stores i) merge p →
      (0 < p.1.ttlSeconds → now ≤ p.2) ∧ (w.stores i).seen p.1.key ≤ p.1.version ∧
        ((w.stores i).kv.store.contains p.1.key = true → (w.stores i).birth p.1.key ≤ p.2)
  | _ => True

end KvWorld

namespace KvHistory

variable {V : Type} (h : KvHistory V)

structure Sound (clock : ℚ) : Prop where
  keyed : ∀ k e, h.kv.store.get? k = some e → e.key = k
  timed : ∀ k e, h.kv.store.get? k = some e → 0 < e.ttlSeconds → e.updatedAt ≤ h.birth k
  versioned : ∀ k e, h.kv.store.get? k = some e → h.seen k ≤ e.version
  born : ∀ k e, h.kv.store.get? k = some e → h.birth k ≤ clock

variable {h} {clock : ℚ}

theorem getEntry_eq_some {k : String} {t : ℚ} {e : KVEntry V}
    (he : (h.kv.getEntry k none t).2 = some e) :
    h.kv.store.get? k = some e ∧ e.isExpired t = false := by
  unfold DistributedKVStore.getEntry at he
  cases hk : h.kv.store.get? k with
  | none => simp [hk] at he
  | some x =>
    simp only [hk] at he
    by_cases hexp : x.isExpired t = true
    · simp [hexp] at he
    · simp [hexp] at he
      subst he
      exact ⟨rfl,by simpa using hexp⟩

theorem getEntry_of_live {k : String} {t : ℚ} {e : KVEntry V} (hk : h.kv.store.get? k = some e)
    (hexp : e.isExpired t = false) : (h.kv.getEntry k none t).2 = some e := by
  simp [DistributedKVStore.getEntry,hk,hexp]

/-- An entry can still be read when its time to live, counted from its update, ends. -/
theorem isExpired_end (e : KVEntry V) : e.isExpired (e.updatedAt + e.ttlSeconds) = false := by
  simp [KVEntry.isExpired]

theorem isExpired_updatedAt (e : KVEntry V) : e.isExpired e.updatedAt = false := by
  rw [KVEntry.isExpired,sub_self]
  by_cases h : 0 < e.ttlSeconds
  · simp [h,le_of_lt h]
  · simp [h]

theorem le_of_live {e : KVEntry V} {t : ℚ} (hexp : e.isExpired t = false)
    (httl : 0 < e.ttlSeconds) : t ≤ e.updatedAt + e.ttlSeconds := by
  simp only [KVEntry.isExpired,httl,decide_true,Bool.true_and,decide_eq_false_iff_not,
    not_lt] at hexp
  linarith

structure Restored (now : ℚ) (item : KVSnapEntry V) (e : KVEntry V) : Prop where
  key : e.key = item.key
  updatedAt : e.updatedAt = now
  ttlSeconds : e.ttlSeconds = item.ttlSeconds
  version : e.version = item.version

theorem restoreItem_other (h : KvHistory V) (merge : Bool) (now : ℚ) {p : SavedEntry V} {k : String}
    (hk : k ≠ p.1.key) : (h.restoreItem merge now p).kv.store.get? k = h.kv.store.get? k ∧
      (h.restoreItem merge now p).birth k = h.birth k := by
  unfold restoreItem
  split_ifs with hskip
  · exact ⟨rfl,rfl⟩
  · refine ⟨?_,Function.update_of_ne hk _ _⟩
    simp only [DistributedKVStore.restoreItem,if_neg hskip,DistributedKVStore.get?_setVersion,
      DistributedKVStore.get?_put,if_neg hk]
    cases h.kv.store.get? k <;> rfl

theorem restoreItem_taken {h : KvHistory V} {merge : Bool} (now : ℚ) {p : SavedEntry V}
    (ht : KvWorld.Taken h merge p) :
    (∃ e, (h.restoreItem merge now p).kv.store.get? p.1.key = some e ∧ Restored now p.1 e) ∧
      (h.restoreItem merge now p).birth p.1.key = p.2 := by
  have hskip : ¬(merge = false ∧ h.kv.store.contains p.1.key = true) := ht
  unfold restoreItem
  rw [if_neg hskip]
  have hget : (h.kv.restoreItem merge now p.1).store.get? p.1.key = some
      { (h.kv.put p.1.key p.1.value p.1.partition p.1.ttlSeconds now).2 with
        version := p.1.version } := by
    simp only [DistributedKVStore.restoreItem,if_neg hskip,DistributedKVStore.get?_setVersion,
      DistributedKVStore.get?_put,if_true,Option.map_some]
  exact ⟨⟨_,hget,⟨rfl,rfl,rfl,rfl⟩⟩,Function.update_self ..⟩

theorem seen_restore (h : KvHistory V) (merge : Bool) (now : ℚ) (items : List (SavedEntry V)) :
    (h.restore merge now items).seen = h.seen := by
  induction items generalizing h with
  | nil => rfl
  | cons p items ih =>
    show ((h.restoreItem merge now p).restore merge now items).seen = _
    rw [ih]
    unfold restoreItem
    split_ifs <;> rfl

theorem restore_other (h : KvHistory V) (merge : Bool) (now : ℚ) {items : List (SavedEntry V)}
    {k : String} (hk : k ∉ items.map fun p => p.1.key) :
    (h.restore merge now items).kv.store.get? k = h.kv.store.get? k ∧
      (h.restore merge now items).birth k = h.birth k := by
  induction items generalizing h with
  | nil => exact ⟨rfl,rfl⟩
  | cons p items ih =>
    obtain ⟨hp,hitems⟩ : k ≠ p.1.key ∧ k ∉ items.map fun p => p.1.key := by
      simpa only [List.map_cons,List.mem_cons,not_or] using hk
    obtain ⟨hget,hbirth⟩ := restoreItem_other h merge now hp
    obtain ⟨hget',hbirth'⟩ := ih (h.restoreItem merge now p) hitems
    exact ⟨hget'.trans hget,hbirth'.trans hbirth⟩

theorem taken_of_same {h h' : KvHistory V} {merge : Bool} {p : SavedEntry V}
    (hget : h'.kv.store.get? p.1.key = h.kv.store.get? p.1.key) :
    KvWorld.Taken h' merge p ↔ KvWorld.Taken h merge p := by
  simp only [KvWorld.Taken,Dict.contains,hget]

/-- An entry that is taken is what is stored under its key after the file has been read. -/
theorem restore_taken {h : KvHistory V} {merge : Bool} (now : ℚ) {items : List (SavedEntry V)}
    {p : SavedEntry V} (hnodup : (items.map fun p => p.1.key).Nodup) (hp : p ∈ items)
    (ht : KvWorld.Taken h merge p) :
    (∃ e, (h.restore merge now items).kv.store.get? p.1.key = some e ∧ Restored now p.1 e) ∧
      (h.restore merge now items).birth p.1.key = p.2 := by
  induction items generalizing h with
  | nil => cases hp
  | cons q items ih =>
    obtain ⟨hq,hnodup⟩ := List.nodup_cons.mp hnodup
    rcases List.mem_cons.mp hp with rfl | hp
    · obtain ⟨⟨e,he,hrest⟩,hbirth⟩ := restoreItem_taken now ht
      obtain ⟨hget,hsame⟩ := restore_other (h.restoreItem merge now p) merge now hq
      exact ⟨⟨e,hget.trans he,hrest⟩,hsame.trans hbirth⟩
    · have hne : p.1.key ≠ q.1.key := by
        intro he
        exact hq (List.mem_map.mpr ⟨p,hp,he⟩)
      have hget := (restoreItem_other h merge now hne).1
      exact ih hnodup hp ((taken_of_same hget).mpr ht)

/-- What is stored after a file has been read was stored before, or is one of its entries. -/
theorem restore_cases (h : KvHistory V) (merge : Bool) (now : ℚ) {items : List (SavedEntry V)}
    (hnodup : (items.map fun p => p.1.key).Nodup) (k : String) :
    ((h.restore merge now items).kv.store.get? k = h.kv.store.get? k ∧
        (h.restore merge now items).birth k = h.birth k) ∨
      ∃ p ∈ items, KvWorld.Taken h merge p ∧ p.1.key = k := by
  induction items generalizing h with
  | nil => exact Or.inl ⟨rfl,rfl⟩
  | cons q items ih =>
    obtain ⟨hq,hnodup⟩ := List.nodup_cons.mp hnodup
    by_cases hk : k = q.1.key
    · by_cases ht : KvWorld.Taken h merge q
      · exact Or.inr ⟨q,List.mem_cons_self ..,ht,hk.symm⟩
      · have hsame : h.restoreItem merge now q = h := if_pos (not_not.mp ht)
        have hout : k ∉ items.map fun p => p.1.key := by
          rw [hk]
          exact hq
        obtain ⟨hget,hbirth⟩ := restore_other h merge now hout
        left
        show ((h.restoreItem merge now q).restore merge now items).kv.store.get? k = _ ∧
          ((h.restoreItem merge now q).restore merge now items).birth k = _
        rw [hsame]
        exact ⟨hget,hbirth⟩
    · obtain ⟨hget,hbirth⟩ := restoreItem_other h merge now hk
      rcases ih (h.restoreItem merge now q) hnodup with ⟨hget',hbirth'⟩ | ⟨p,hp,ht,hpk⟩
      · exact Or.inl ⟨hget'.trans hget,hbirth'.trans hbirth⟩
      · refine Or.inr ⟨p,List.mem_cons_of_mem q hp,?_,hpk⟩
        exact (taken_of_same (by rw [hpk]; exact hget)).mp ht

theorem Sound.mono (hs : h.Sound clock) {now : ℚ} (hle : clock ≤ now) : h.Sound now :=
  ⟨hs.keyed,hs.timed,hs.versioned,fun k e he => (hs.born k e he).trans hle⟩

theorem Sound.of_subset (hs : h.Sound clock) {kv : DistributedKVStore V}
    (hsub : ∀ k e, kv.store.get? k = some e → h.kv.store.get? k = some e) :
    ({ h with kv := kv } : KvHistory V).Sound clock :=
  ⟨fun k e he => hs.keyed k e (hsub k e he),fun k e he => hs.timed k e (hsub k e he),
    fun k e he => hs.versioned k e (hsub k e he),fun k e he => hs.born k e (hsub k e he)⟩

theorem get?_of_delete {kv : DistributedKVStore V} {key k : String} {e : KVEntry V}
    (he : (kv.delete key).1.store.get? k = some e) : kv.store.get? k = some e := by
  rw [DistributedKVStore.get?_delete] at he
  split_ifs at he
  exact he

theorem get?_of_cleanupExpired {kv : DistributedKVStore V} {now : ℚ} {k : String} {e : KVEntry V}
    (he : (kv.cleanupExpired now).1.store.get? k = some e) : kv.store.get? k = some e := by
  rw [DistributedKVStore.get?_cleanupExpired] at he
  exact (Option.filter_eq_some_iff.mp he).1

theorem get?_of_getEntry {kv : DistributedKVStore V} {key k : String} {partition : Option String}
    {now : ℚ} {e : KVEntry V} (he : (kv.getEntry key partition now).1.store.get? k = some e) :
    kv.store.get? k = some e := by
  unfold DistributedKVStore.getEntry at he
  cases hk : kv.store.get? key with
  | none => simpa only [hk] using he
  | some x =>
    simp only [hk] at he
    split_ifs at he
    · exact get?_of_delete he
    · exact he
    · exact he

theorem Sound.returned (hs : h.Sound clock) {key : String} {version : ℤ}
    (hle : ∀ e, h.kv.store.get? key = some e → version ≤ e.version) :
    (h.returned key version).Sound clock := by
  refine ⟨hs.keyed,hs.timed,fun k e he => ?_,hs.born⟩
  show Function.update h.seen key _ k ≤ e.version
  by_cases hk : k = key
  · subst hk
    rw [Function.update_self]
    exact max_le (hs.versioned k e he) (hle e he)
  · rw [Function.update_of_ne hk]
    exact hs.versioned k e he

theorem getEntry_returns {kv : DistributedKVStore V} {key : String} {partition : Option String}
    {now : ℚ} {e : KVEntry V} (he : (kv.getEntry key partition now).2 = some e) :
    kv.store.get? key = some e ∧ (kv.getEntry key partition now).1 = kv := by
  unfold DistributedKVStore.getEntry at he ⊢
  cases hk : kv.store.get? key with
  | none => simp [hk] at he
  | some x =>
    simp only [hk] at he ⊢
    split_ifs at he ⊢
    obtain rfl := Option.some.inj he
    exact ⟨rfl,rfl⟩

theorem Sound.getEntry (hs : h.Sound clock) (key : String) (partition : Option String) (now : ℚ) :
    (h.getEntry key partition now).Sound clock := by
  have hsub : ({ h with kv := (h.kv.getEntry key partition now).1 } : KvHistory V).Sound clock :=
    hs.of_subset fun k e he => get?_of_getEntry he
  simp only [KvHistory.getEntry]
  cases he : (h.kv.getEntry key partition now).2 with
  | none => exact hsub
  | some e =>
    refine hsub.returned fun x hx => ?_
    obtain ⟨hk,hsame⟩ := getEntry_returns he
    obtain rfl := Option.some.inj (hk.symm.trans (get?_of_getEntry hx))
    exact le_rfl

theorem Sound.put (hs : h.Sound clock) {key : String} (hnew : h.kv.store.get? key = none →
    h.seen key ≤ 1) (value : V) (partition : String) (ttl : ℚ) {now : ℚ} (hle : clock ≤ now) :
    (h.put key value partition ttl now).Sound now := by
  have hversion : h.seen key ≤ (h.kv.put key value partition ttl now).2.version := by
    show _ ≤ ((h.kv.store.get? key).map fun e => e.version + 1).getD 1
    cases hk : h.kv.store.get? key with
    | none => exact hnew hk
    | some x => exact (hs.versioned key x hk).trans (Int.le_of_lt (Int.lt_succ x.version))
  have hbase : ({ h with
      kv := (h.kv.put key value partition ttl now).1
      birth := Function.update h.birth key now } : KvHistory V).Sound now := by
    refine ⟨fun k e he => ?_,fun k e he httl => ?_,fun k e he => ?_,fun k e he => ?_⟩ <;>
      rw [DistributedKVStore.get?_put] at he <;> split_ifs at he with hk
    · rw [hk,← Option.some.inj he]
      rfl
    · exact hs.keyed k e he
    · show _ ≤ Function.update h.birth key now k
      rw [hk,Function.update_self,← Option.some.inj he]
      exact le_rfl
    · show _ ≤ Function.update h.birth key now k
      rw [Function.update_of_ne hk]
      exact hs.timed k e he httl
    · rw [hk,← Option.some.inj he]
      exact hversion
    · exact hs.versioned k e he
    · show Function.update h.birth key now k ≤ now
      rw [hk,Function.update_self]
    · show Function.update h.birth key now k ≤ now
      rw [Function.update_of_ne hk]
      exact (hs.born k e he).trans hle
  refine hbase.returned fun e he => ?_
  rw [DistributedKVStore.get?_put,if_pos rfl] at he
  rw [← Option.some.inj he]

theorem Sound.restore (hs : h.Sound clock) {merge : Bool} {now : ℚ} {items : List (SavedEntry V)}
    (hle : clock ≤ now) (hnodup : (items.map fun p => p.1.key).Nodup)
    (hborn : ∀ p ∈ items, p.2 ≤ clock)
    (hkeeps : ∀ p ∈ items, KvWorld.Taken h merge p →
      (0 < p.1.ttlSeconds → now ≤ p.2) ∧ h.seen p.1.key ≤ p.1.version) :
    (h.restore merge now items).Sound now := by
  have hcases : ∀ k e, (h.restore merge now items).kv.store.get? k = some e →
      (h.kv.store.get? k = some e ∧ (h.restore merge now items).birth k = h.birth k) ∨
      ∃ p ∈ items, KvWorld.Taken h merge p ∧ p.1.key = k ∧ Restored now p.1 e ∧
        (h.restore merge now items).birth k = p.2 := by
    intro k e he
    rcases restore_cases h merge now hnodup k with ⟨hget,hbirth⟩ | ⟨p,hp,ht,rfl⟩
    · exact Or.inl ⟨hget ▸ he,hbirth⟩
    · obtain ⟨⟨x,hx,hrest⟩,hbirth⟩ := restore_taken now hnodup hp ht
      obtain rfl := Option.some.inj (hx.symm.trans he)
      exact Or.inr ⟨p,hp,ht,rfl,hrest,hbirth⟩
  refine ⟨fun k e he => ?_,fun k e he httl => ?_,fun k e he => ?_,fun k e he => ?_⟩ <;>
    rcases hcases k e he with ⟨hold,hbirth⟩ | ⟨p,hp,ht,rfl,hrest,hbirth⟩
  · exact hs.keyed k e hold
  · exact hrest.key
  · rw [hbirth]
    exact hs.timed k e hold httl
  · rw [hbirth,hrest.updatedAt]
    exact (hkeeps p hp ht).1 (hrest.ttlSeconds ▸ httl)
  · rw [seen_restore]
    exact hs.versioned k e hold
  · rw [seen_restore,hrest.version]
    exact (hkeeps p hp ht).2
  · rw [hbirth]
    exact (hs.born k e hold).trans hle
  · rw [hbirth]
    exact (hborn p hp).trans hle

theorem Sound.nodup_saved (hs : h.Sound clock) (now : ℚ) :
    ((h.saved now).map fun p => p.1.key).Nodup := by
  have hkeys : (h.saved now).map (fun p => p.1.key) = (h.kv.cleanupExpired now).1.store.keys := by
    simp only [saved,DistributedKVStore.snapshot,List.map_map,Dict.values,Dict.keys]
    apply List.map_congr_left
    intro p hp
    exact hs.keyed p.1 p.2 (get?_of_cleanupExpired (Dict.get?_eq_some_iff.mpr hp))
  rw [hkeys]
  exact (h.kv.cleanupExpired now).1.store.nodup

theorem Sound.born_saved (hs : h.Sound clock) {now : ℚ} {p : SavedEntry V}
    (hp : p ∈ h.saved now) : p.2 ≤ clock := by
  obtain ⟨item,hitem,rfl⟩ := List.mem_map.mp hp
  obtain ⟨e,he,rfl⟩ := List.mem_map.mp hitem
  obtain ⟨k,hk⟩ := Dict.mem_values_iff.mp he
  have hold := get?_of_cleanupExpired hk
  show h.birth e.key ≤ clock
  rw [hs.keyed k e hold]
  exact hs.born k e hold

end KvHistory

namespace KvWorld

variable {V : Type} {w w' : KvWorld V}

structure Sound (w : KvWorld V) : Prop where
  stores : ∀ i, (w.stores i).Sound w.clock
  distinct : ∀ path, ((w.files path).map fun p => p.1.key).Nodup
  born : ∀ path, ∀ p ∈ w.files path, p.2 ≤ w.clock

theorem sound_create (maxEntries : ℕ) : (create maxEntries : KvWorld V).Sound := by
  have hempty : ∀ k (e : KVEntry V), (∅ : Dict String (KVEntry V)).get? k ≠ some e := by simp
  refine ⟨fun i => ?_,fun path => List.nodup_nil,fun path p hp => absurd hp List.not_mem_nil⟩
  exact ⟨fun k e he => absurd he (hempty k e),fun k e he => absurd he (hempty k e),
    fun k e he => absurd he (hempty k e),fun k e he => absurd he (hempty k e)⟩

theorem Sound.timely (hw : w.Sound) (i : ℕ) (k : String) (e : KVEntry V) (t : ℚ)
    (he : ((w.stores i).kv.getEntry k none t).2 = some e) (httl : 0 < e.ttlSeconds) :
    t ≤ (w.stores i).birth k + e.ttlSeconds := by
  obtain ⟨hk,hexp⟩ := KvHistory.getEntry_eq_some he
  have hend := KvHistory.le_of_live hexp httl
  have hbirth := (hw.stores i).timed k e hk httl
  linarith

theorem Sound.versions (hw : w.Sound) (i : ℕ) (k : String) (e : KVEntry V) (t : ℚ)
    (he : ((w.stores i).kv.getEntry k none t).2 = some e) : (w.stores i).seen k ≤ e.version :=
  (hw.stores i).versioned k e (KvHistory.getEntry_eq_some he).1

theorem Sound.update (hw : w.Sound) {i : ℕ} {h : KvHistory V} {now : ℚ} (hle : w.clock ≤ now)
    (hh : h.Sound now) : (w.update i h now).Sound := by
  refine ⟨fun j => ?_,hw.distinct,fun path p hp => (hw.born path p hp).trans hle⟩
  show (Function.update w.stores i h j).Sound now
  by_cases hj : j = i
  · subst hj
    rwa [Function.update_self]
  · rw [Function.update_of_ne hj]
    exact (hw.stores j).mono hle

theorem step_time {ev : KvWorldEvent V} (h : machine.step w ev = some w') :
    w.clock ≤ eventTime ev ∧ w' = w.next ev := by
  obtain ⟨hle,h⟩ := Option.ite_none_right_eq_some.mp h
  exact ⟨hle,(Option.some.inj h).symm⟩

theorem step_sound (hw : w.Sound) {ev : KvWorldEvent V} (h : machine.step w ev = some w')
    (hkeeps : w.Keeps ev) : w'.Sound := by
  obtain ⟨hle,rfl⟩ := step_time h
  cases ev with
  | put i key value partition ttl now =>
    exact hw.update hle ((hw.stores i).put hkeeps value partition ttl hle)
  | get i key now =>
    refine hw.update hle (((hw.stores i).mono hle).of_subset fun k e he => ?_)
    exact KvHistory.get?_of_getEntry he
  | getEntry i key partition now =>
    exact hw.update hle (((hw.stores i).mono hle).getEntry key partition now)
  | delete i key now =>
    refine hw.update hle (((hw.stores i).mono hle).of_subset fun k e he => ?_)
    exact KvHistory.get?_of_delete he
  | list i now =>
    refine hw.update hle (((hw.stores i).mono hle).of_subset fun k e he => ?_)
    exact KvHistory.get?_of_cleanupExpired he
  | save i path now =>
    have hstore : (w.update i { w.stores i with kv := ((w.stores i).kv.save now).1 } now).Sound := by
      refine hw.update hle (((hw.stores i).mono hle).of_subset fun k e he => ?_)
      exact KvHistory.get?_of_cleanupExpired he
    refine ⟨hstore.stores,fun path' => ?_,fun path' p hp => ?_⟩
    · show ((Function.update w.files path ((w.stores i).saved now) path').map _).Nodup
      by_cases hpath : path' = path
      · subst hpath
        rw [Function.update_self]
        exact (hw.stores i).nodup_saved now
      · rw [Function.update_of_ne hpath]
        exact hw.distinct path'
    · have hp' : p ∈ Function.update w.files path ((w.stores i).saved now) path' := hp
      by_cases hpath : path' = path
      · subst hpath
        rw [Function.update_self] at hp'
        exact ((hw.stores i).born_saved hp').trans hle
      · rw [Function.update_of_ne hpath] at hp'
        exact (hw.born path' p hp').trans hle
  | restore i merge path now =>
    refine hw.update hle ((hw.stores i).restore hle (hw.distinct path) (hw.born path) ?_)
    intro p hp ht
    obtain ⟨httl,hversion,-⟩ := hkeeps p hp ht
    exact ⟨httl,hversion⟩

/-- Where only the entries of one store change, no put time goes back. -/
theorem newer_update {i : ℕ} {h : KvHistory V} {now : ℚ}
    (hbirth : ∀ k e, (w.stores i).kv.store.get? k = some e → (w.stores i).birth k ≤ h.birth k)
    (j : ℕ) (k : String) (e : KVEntry V) (he : (w.stores j).kv.store.get? k = some e) :
    (w.stores j).birth k ≤ ((w.update i h now).stores j).birth k := by
  show _ ≤ (Function.update w.stores i h j).birth k
  by_cases hj : j = i
  · subst hj
    rw [Function.update_self]
    exact hbirth k e he
  · rw [Function.update_of_ne hj]

theorem step_newer (hw : w.Sound) {ev : KvWorldEvent V} (h : machine.step w ev = some w')
    (hkeeps : w.Keeps ev) (j : ℕ) (k : String) (e : KVEntry V)
    (he : (w.stores j).kv.store.get? k = some e) :
    (w.stores j).birth k ≤ (w'.stores j).birth k := by
  obtain ⟨hle,rfl⟩ := step_time h
  cases ev with
  | put i key value partition ttl now =>
    refine newer_update (fun k e he => ?_) j k e he
    show _ ≤ Function.update (w.stores i).birth key now k
    by_cases hk : k = key
    · rw [hk,Function.update_self]
      rw [hk] at he
      exact ((hw.stores i).born key e he).trans hle
    · rw [Function.update_of_ne hk]
  | get i key now =>
    refine newer_update (fun k e _ => ?_) j k e he
    exact le_rfl
  | getEntry i key partition now =>
    refine newer_update (fun k _ _ => ?_) j k e he
    simp only [KvHistory.getEntry]
    cases ((w.stores i).kv.getEntry key partition now).2 with
    | none => exact le_rfl
    | some e => exact le_rfl
  | delete i key now =>
    refine newer_update (fun k e _ => ?_) j k e he
    exact le_rfl
  | list i now =>
    refine newer_update (fun k e _ => ?_) j k e he
    exact le_rfl
  | save i path now =>
    show _ ≤ ((w.update i { w.stores i with kv := ((w.stores i).kv.save now).1 } now).stores
      j).birth k
    refine newer_update (fun k e _ => ?_) j k e he
    exact le_rfl
  | restore i merge path now =>
    refine newer_update (fun k e he => ?_) j k e he
    rcases KvHistory.restore_cases (w.stores i) merge now (hw.distinct path) k with
      ⟨-,hbirth⟩ | ⟨p,hp,ht,rfl⟩
    · rw [hbirth]
    · rw [(KvHistory.restore_taken now (hw.distinct path) hp ht).2]
      exact (hkeeps p hp ht).2.2 (by rw [Dict.contains,he]; rfl)

theorem keeps_of_lawful {ev : KvWorldEvent V} (hw : w.Sound) (h : machine.step w ev = some w')
    (hl : w.Lawful w') : w.Keeps ev := by
  obtain ⟨hle,rfl⟩ := step_time h
  cases ev with
  | put i key value partition ttl now =>
    intro hnone
    have hself : ((w.next (.put i key value partition ttl now)).stores i) =
        (w.stores i).put key value partition ttl now := Function.update_self ..
    have hread : (((w.stores i).put key value partition ttl now).kv.getEntry key none now).2 =
        some ((w.stores i).kv.put key value partition ttl now).2 := by
      apply KvHistory.getEntry_of_live
      · exact (DistributedKVStore.get?_put key value partition ttl now key).trans (if_pos rfl)
      · exact KvHistory.isExpired_updatedAt _
    have hseen := hl.versions i key _ now le_rfl (by rw [hself]; exact hread)
    rw [hself] at hseen
    have hversion : ((w.stores i).kv.put key value partition ttl now).2.version = 1 := by
      show ((_ : Option (KVEntry V)).map fun e => e.version + 1).getD 1 = 1
      rw [hnone]
      rfl
    have hmax : (w.stores i).seen key ≤
        ((w.stores i).put key value partition ttl now).seen key := by
      show _ ≤ Function.update (w.stores i).seen key _ key
      rw [Function.update_self]
      exact le_max_left _ _
    exact hversion ▸ hmax.trans hseen
  | restore i merge path now =>
    intro p hp ht
    have hself : ((w.next (.restore i merge path now)).stores i) =
        (w.stores i).restore merge now (w.files path) := Function.update_self ..
    obtain ⟨⟨e,he,hrest⟩,hbirth⟩ := KvHistory.restore_taken now (hw.distinct path) hp ht
    refine ⟨fun httl => ?_,?_,fun hstored => ?_⟩
    · have hend : e.isExpired (now + e.ttlSeconds) = false := by
        rw [← hrest.updatedAt]
        exact KvHistory.isExpired_end e
      have httl' : 0 < e.ttlSeconds := hrest.ttlSeconds ▸ httl
      have htime := hl.timely i p.1.key e (now + e.ttlSeconds)
        (le_add_of_nonneg_right (le_of_lt httl'))
        (by rw [hself]; exact KvHistory.getEntry_of_live he hend) httl'
      rw [hself,hbirth] at htime
      linarith
    · have hlive : e.isExpired now = false := by
        rw [← hrest.updatedAt]
        exact KvHistory.isExpired_updatedAt e
      have hseen := hl.versions i p.1.key e now le_rfl
        (by rw [hself]; exact KvHistory.getEntry_of_live he hlive)
      rwa [hself,KvHistory.seen_restore,hrest.version] at hseen
    · obtain ⟨x,hx⟩ := Option.isSome_iff_exists.mp hstored
      have hnewer := hl.newer i p.1.key x hx
      rwa [hself,hbirth] at hnewer
  | _ => trivial

/-- The laws hold along a run if and only if every entry that is restored meets the condition, and
no key is put anew after a version above 1. -/
theorem time_version_laws_iff (maxEntries : ℕ) (es : List (KvWorldEvent V)) :
    machine.Along (fun w _ w' => w.Lawful w') (create maxEntries) es ↔
      machine.Along (fun w ev _ => w.Keeps ev) (create maxEntries) es := by
  apply Machine.along_congr_of_invariant (I := Sound)
  · intro w ev w' hw h
    constructor
    · exact fun hl => keeps_of_lawful hw h hl
    · intro hkeeps
      have hw' := step_sound hw h hkeeps
      exact ⟨fun i k e t _ he httl => hw'.timely i k e t he httl,
        fun i k e t _ he => hw'.versions i k e t he,step_newer hw h hkeeps⟩
  · intro w ev w' hw h hkeeps
    exact step_sound hw h hkeeps
  · exact sound_create maxEntries

/-- A value that is put at 0 for ten seconds, saved, and loaded at 9 by another store is read at
18. -/
theorem load_renews_time_to_live :
    ∃ w : KvWorld ℕ, machine.exec (create 10)
        [.put 0 "k" 7 "default" 10 0,.save 0 "f" 1,.restore 1 false "f" 9] = some w ∧
      ((w.stores 1).kv.get "k" 18).2 = some 7 ∧ (w.stores 1).birth "k" + 10 < 18 := by
  refine ⟨_,rfl,?_,?_⟩
  · decide +kernel
  · decide +kernel

end KvWorld
end FusionMultiNodes
